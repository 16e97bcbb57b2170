import AsyncMigration.Dependency.Aggregate
import Mathlib.Data.List.Sort
import Mathlib.Logic.Relation

/-!
# What a node reaches

The plain account of what aggregates tell: reachability along calls, and what reaching nodes brings,
trait by trait.

* `Aggregate.Describes` — the component is the strong component in the order of the texts, the
  cyclic mark is a way back of at least one call, the burden is that of all other nodes reached.
* `Aggregate.Describes.unique` — there is one such aggregate only.
* `Aggregate.Describes.congr` — it hangs on the calls and on what each node brings, and on nothing
  else of the graph.
-/

namespace AsyncMigration

namespace CallGraph

variable {g : CallGraph} {a b c n : Node}

/-- A node calls another. -/
def Calls (g : CallGraph) (a b : Node) : Prop := b ∈ g.successors a

/-- A node reaches another by any number of calls. -/
def Reaches (g : CallGraph) : Node → Node → Prop := Relation.ReflTransGen g.Calls

/-- A node reaches itself by at least one call. -/
def Recurs (g : CallGraph) (n : Node) : Prop := Relation.TransGen g.Calls n n

/-- Two nodes reach each other. -/
def Linked (g : CallGraph) (a b : Node) : Prop := g.Reaches a b ∧ g.Reaches b a

theorem Reaches.refl (g : CallGraph) (n : Node) : g.Reaches n n := Relation.ReflTransGen.refl

theorem Reaches.trans (h : g.Reaches a b) (h' : g.Reaches b c) : g.Reaches a c :=
  Relation.ReflTransGen.trans h h'

theorem Reaches.call (h : g.Reaches a b) (h' : c ∈ g.successors b) : g.Reaches a c :=
  Relation.ReflTransGen.tail h h'

/-- A set of nodes that no call leaves holds all that its members reach. -/
theorem Reaches.mem_of_closed {p : Node → Prop} (hp : ∀ x, p x → ∀ y ∈ g.successors x, p y)
    (h : g.Reaches a b) (ha : p a) : p b := by
  induction h with
  | refl => exact ha
  | tail _ hcall ih => exact hp _ ih _ hcall

@[simp] theorem successors_sink (g : CallGraph) (s : String) : g.successors (.sink s) = [] := rfl

/-- A sink reaches itself only. -/
theorem Reaches.eq_of_sink {s : String} (h : g.Reaches (.sink s) b) : b = .sink s := by
  rcases Relation.ReflTransGen.cases_head h with he | ⟨c, hc, _⟩
  · exact he.symm
  · simp [Calls] at hc

theorem Linked.symm (h : g.Linked a b) : g.Linked b a := ⟨h.2, h.1⟩

theorem Linked.trans (h : g.Linked a b) (h' : g.Linked b c) : g.Linked a c :=
  ⟨h.1.trans h'.1, h'.2.trans h.2⟩

/-- A component of more than one node holds functions only, so that texts tell its members apart. -/
theorem Linked.text_injective (ha : g.Linked n a) (hb : g.Linked n b) (h : a.text = b.text) :
    a = b := by
  have hab : g.Linked a b := ha.symm.trans hb
  match a, b with
  | .sink s, _ => exact (Reaches.eq_of_sink hab.1).symm
  | _, .sink s => exact Reaches.eq_of_sink hab.2
  | .function _, .function _ => simpa [Node.text] using h

/-- A node that reaches another and is reached by it recurs. -/
theorem Linked.recurs (h : g.Linked a b) (hne : a ≠ b) : g.Recurs a := by
  obtain ⟨hab, hba⟩ := h
  rcases Relation.reflTransGen_iff_eq_or_transGen.1 hab with he | hab
  · exact absurd he.symm hne
  · exact hab.trans_left hba

/-- A node recurs if and only if it calls a node of its own component. -/
theorem recurs_iff : g.Recurs n ↔ ∃ c ∈ g.successors n, g.Reaches c n :=
  Relation.TransGen.head'_iff

end CallGraph

/-! ## What a burden holds -/

/-- Something that reaching a node may bring. -/
inductive Trait where
  | constraint (c : Constraint)
  | kind (k : PatternKind)
  | sink (name : String)

namespace Burden

/-- Whether a burden holds a trait. -/
def Has (b : Burden) : Trait → Prop
  | .constraint c => b.constraints.contains c = true
  | .kind k => b.kinds.contains k = true
  | .sink s => s ∈ b.sinks.names

@[simp] theorem has_union (a b : Burden) (t : Trait) : (a.union b).Has t ↔ a.Has t ∨ b.Has t := by
  cases t <;> simp [Has, union]

theorem has_empty (t : Trait) : ¬ ({} : Burden).Has t := by
  rcases t with c | k | s
  · cases c <;> exact Bool.false_ne_true
  · cases k <;> exact Bool.false_ne_true
  · exact List.not_mem_nil

@[simp] theorem has_join (bs : List Burden) (t : Trait) : (join bs).Has t ↔ ∃ b ∈ bs, b.Has t := by
  induction bs with
  | nil => simp [join, has_empty]
  | cons b bs ih =>
    show (b.union (join bs)).Has t ↔ _
    simp [ih]

/-- The names of the sinks stand in order, each once. -/
def Ordered (b : Burden) : Prop := b.sinks.names.Pairwise (· < ·)

end Burden

theorem pairwise_insertName {s : String} {ts : List String} (h : ts.Pairwise (· < ·)) :
    (insertName s ts).Pairwise (· < ·) := by
  induction ts with
  | nil => simp [insertName]
  | cons t ts ih =>
    obtain ⟨ht, hts⟩ := List.pairwise_cons.1 h
    unfold insertName
    split
    · next hst =>
      refine List.pairwise_cons.2 ⟨fun x hx => ?_, h⟩
      rcases List.mem_cons.1 hx with rfl | hx
      · exact hst
      · exact String.lt_trans hst (ht x hx)
    · split
      · exact h
      · next hlt hne =>
        refine List.pairwise_cons.2 ⟨fun x hx => ?_, ih hts⟩
        rcases mem_insertName.1 hx with rfl | hx
        · exact Std.lt_of_le_of_ne (String.not_lt.1 hlt) (Ne.symm hne)
        · exact ht x hx

theorem NameSet.pairwise_foldr_insertName {ss ts : List String} (h : ts.Pairwise (· < ·)) :
    (ss.foldr insertName ts).Pairwise (· < ·) := by
  induction ss with
  | nil => exact h
  | cons s ss ih => exact pairwise_insertName ih

/-- Two sets of names in order that have the same members are the same. -/
theorem NameSet.ext_of_pairwise {a b : NameSet} (ha : a.names.Pairwise (· < ·))
    (hb : b.names.Pairwise (· < ·)) (h : ∀ s, s ∈ a.names ↔ s ∈ b.names) : a = b := by
  obtain ⟨as⟩ := a
  obtain ⟨bs⟩ := b
  rw [NameSet.mk.injEq]
  have : Std.Irrefl (fun s t : String => s < t) := ⟨String.lt_irrefl⟩
  have : Std.Antisymm (fun s t : String => s < t) := ⟨fun s t h h' => absurd h' (String.lt_asymm h)⟩
  exact ha.eq_of_mem_iff hb h

theorem ConstraintSet.ext_of_contains {a b : ConstraintSet} (h : ∀ c, a.contains c = b.contains c) :
    a = b := by
  obtain ⟨a₁, a₂, a₃⟩ := a
  obtain ⟨b₁, b₂, b₃⟩ := b
  rw [ConstraintSet.mk.injEq]
  exact ⟨h .interopExposure, h .protocolRequirement, h .externalSinkDependency⟩

theorem PatternKindSet.ext_of_contains {a b : PatternKindSet}
    (h : ∀ k, a.contains k = b.contains k) : a = b := by
  obtain ⟨a₁, a₂, a₃, a₄, a₅⟩ := a
  obtain ⟨b₁, b₂, b₃, b₄, b₅⟩ := b
  rw [PatternKindSet.mk.injEq]
  exact ⟨h .callbackParameter, h .suspensionChecked, h .suspensionUncheckedUnsafe,
    h .nestedSuspension, h .nativeStructured⟩

namespace Burden

theorem Ordered.union (a : Burden) {b : Burden} (h : b.Ordered) : (a.union b).Ordered :=
  NameSet.pairwise_foldr_insertName h

theorem ordered_join (bs : List Burden) : (join bs).Ordered := by
  induction bs with
  | nil => exact List.Pairwise.nil
  | cons b bs ih => exact Ordered.union b ih

/-- Burdens in order that hold the same traits are the same. -/
theorem ext_of_has {a b : Burden} (ha : a.Ordered) (hb : b.Ordered) (h : ∀ t, a.Has t ↔ b.Has t) :
    a = b := by
  have hc := ConstraintSet.ext_of_contains fun c => Bool.eq_iff_iff.2 (h (.constraint c))
  have hk := PatternKindSet.ext_of_contains fun k => Bool.eq_iff_iff.2 (h (.kind k))
  have hs := NameSet.ext_of_pairwise ha hb fun s => h (.sink s)
  obtain ⟨_, _, _⟩ := a
  obtain ⟨_, _, _⟩ := b
  rw [Burden.mk.injEq]
  exact ⟨hc, hk, hs⟩

theorem own_has_sink {g : CallGraph} {n : Node} {s : String} :
    (own g n).Has (.sink s) ↔ n = .sink s := by
  cases n <;> simp [own, Has, Node.sinkName?, eq_comm]

theorem own_has_kind {g : CallGraph} {n : Node} {k : PatternKind} :
    (own g n).Has (.kind k) ↔ ∃ e, g.entry? n = some e ∧ ∃ p ∈ e.scan.patterns, p.kind = k := by
  cases h : g.entry? n with
  | none => cases k <;> simp [own, Has, CallGraph.ownKinds, h, PatternKindSet.contains]
  | some e => simp [own, Has, CallGraph.ownKinds, h, ScanReport.kinds, PatternKindSet.ofList]

end Burden

/-! ## Aggregates -/

/-- Two lists of nodes in the order of their texts that have the same members are the same. -/
theorem eq_of_pairwise_text {ns ms : List Node} (hns : ns.Pairwise fun x y => x.text < y.text)
    (hms : ms.Pairwise fun x y => x.text < y.text) (h : ∀ n, n ∈ ns ↔ n ∈ ms) : ns = ms := by
  have : Std.Irrefl (fun x y : Node => x.text < y.text) := ⟨fun x => String.lt_irrefl x.text⟩
  have : Std.Antisymm (fun x y : Node => x.text < y.text) :=
    ⟨fun x y h h' => absurd h' (String.lt_asymm h)⟩
  exact hns.eq_of_mem_iff hms h

namespace Aggregate

/-- What the aggregate of a node has to say. -/
structure Describes (a : Aggregate) (g : CallGraph) (n : Node) : Prop where
  node : a.node = n
  ordered : a.component.Pairwise fun x y => x.text < y.text
  member : ∀ m, m ∈ a.component ↔ g.Linked n m
  cyclic : a.cyclic = true ↔ g.Recurs n
  below : ∀ t, a.below.Has t ↔ ∃ m, m ≠ n ∧ g.Reaches n m ∧ (Burden.own g m).Has t
  sinksOrdered : a.below.Ordered

namespace Describes

variable {a b : Aggregate} {g g' : CallGraph} {n : Node}

/-- A node has one aggregate only. -/
theorem unique (ha : a.Describes g n) (hb : b.Describes g n) : a = b := by
  have hcomp : a.component = b.component :=
    eq_of_pairwise_text ha.ordered hb.ordered fun m => (ha.member m).trans (hb.member m).symm
  have hcyc : a.cyclic = b.cyclic := Bool.eq_iff_iff.2 (ha.cyclic.trans hb.cyclic.symm)
  have hbelow := Burden.ext_of_has ha.sinksOrdered hb.sinksOrdered fun t =>
    (ha.below t).trans (hb.below t).symm
  have hnode := ha.node.trans hb.node.symm
  obtain ⟨_, _, _, _⟩ := a
  obtain ⟨_, _, _, _⟩ := b
  rw [Aggregate.mk.injEq]
  exact ⟨hnode, hcomp, hcyc, hbelow⟩

/-- An aggregate hangs on the calls of a graph and on what its nodes bring. -/
theorem congr (hcalls : ∀ x y, g.Calls x y ↔ g'.Calls x y)
    (hown : ∀ m t, (Burden.own g m).Has t ↔ (Burden.own g' m).Has t) (ha : a.Describes g n) :
    a.Describes g' n := by
  have hC : g.Calls = g'.Calls := funext fun x => funext fun y => propext (hcalls x y)
  have hR : g.Reaches = g'.Reaches := congrArg Relation.ReflTransGen hC
  refine ⟨ha.node, ha.ordered, fun m => ?_, ?_, fun t => ?_, ha.sinksOrdered⟩
  · rw [ha.member, CallGraph.Linked, CallGraph.Linked, hR]
  · rw [ha.cyclic, CallGraph.Recurs, CallGraph.Recurs, hC]
  · rw [ha.below, hR]
    simp only [hown]

theorem constraints (ha : a.Describes g n) (c : Constraint) :
    a.below.constraints.contains c = true ↔
      ∃ m, m ≠ n ∧ g.Reaches n m ∧ (g.ownConstraints m).contains c = true :=
  ha.below (.constraint c)

theorem kinds (ha : a.Describes g n) (k : PatternKind) :
    a.below.kinds.contains k = true ↔
      ∃ m, m ≠ n ∧ g.Reaches n m ∧
        ∃ e, g.entry? m = some e ∧ ∃ p ∈ e.scan.patterns, p.kind = k := by
  have h := ha.below (.kind k)
  simp only [Burden.own_has_kind] at h
  exact h

theorem sinks (ha : a.Describes g n) (s : String) :
    s ∈ a.below.sinks.names ↔ Node.sink s ≠ n ∧ g.Reaches n (.sink s) := by
  have h := ha.below (.sink s)
  simp only [Burden.own_has_sink] at h
  refine h.trans ⟨?_, fun h => ⟨_, h.1, h.2, rfl⟩⟩
  rintro ⟨m, hne, hreach, rfl⟩
  exact ⟨hne, hreach⟩

end Describes
end Aggregate

/-! ## Pending calls -/

namespace Frame

variable {g : CallGraph} {f : Frame g} {fs gs : List (Frame g)} {n c x : Node} {cs : List Node}

/-- The frame of a caller has yet to examine a callee. -/
def Pending (fs : List (Frame g)) (n c : Node) : Prop := ∃ f ∈ fs, f.node = n ∧ c ∈ f.pending

theorem pending_iff (hs : gs = f :: fs) :
    Pending gs n c ↔ (f.node = n ∧ c ∈ f.pending) ∨ Pending fs n c := by
  simp [Pending, hs]

theorem pending_head (hs : gs = f :: fs) (hf : f.pending = c :: cs) : Pending gs f.node c :=
  (pending_iff hs).2 (Or.inl ⟨rfl, by rw [hf]; exact List.mem_cons_self⟩)

/-- Taking the first pending call of the innermost frame leaves the others. -/
theorem pending_advance (hs : gs = f :: fs) (hf : f.pending = c :: cs) :
    Pending (f.advance :: fs) n x ∨ (n = f.node ∧ x = c) ↔ Pending gs n x := by
  have htail : f.advance.pending = cs := by simp [advance, hf]
  have hnode : f.advance.node = f.node := rfl
  rw [pending_iff rfl, pending_iff hs, hf, List.mem_cons, htail, hnode]
  grind

end Frame
end AsyncMigration
