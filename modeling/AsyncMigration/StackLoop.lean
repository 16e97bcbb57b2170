/-!
# Loops over a stack

Trees are walked without recursion: what is still to be visited stands on a stack, each turn takes the
last entry from it, and what stands below that entry in the tree is put on in its place. The loops of
this library differ in what they visit and in what they make of it, and in the order in which they put
things on; the turn is the same.

* `StackLoop.run` — the loop; it ends since an entry outweighs what is put on in its place.
* `StackLoop.run_append` — what is above is done with before anything below it is looked at.
-/

namespace AsyncMigration

/-- The weight of entries together. -/
def loadOf {α : Type} (weight : α → Nat) : List α → Nat
  | [] => 0
  | a :: as => weight a + loadOf weight as

theorem loadOf_append {α : Type} (weight : α → Nat) (as bs : List α) :
    loadOf weight (as ++ bs) = loadOf weight as + loadOf weight bs := by
  induction as with
  | nil => simp [loadOf]
  | cons a as ih => simp only [List.cons_append, loadOf, ih, Nat.add_assoc]

theorem loadOf_reverse {α : Type} (weight : α → Nat) (as : List α) :
    loadOf weight as.reverse = loadOf weight as := by
  induction as with
  | nil => rfl
  | cons a as ih =>
    simp only [List.reverse_cons, loadOf_append, ih, loadOf]
    omega

theorem loadOf_map {α β : Type} (weight : β → Nat) (f : α → β) (as : List α) :
    loadOf weight (as.map f) = loadOf (fun a => weight (f a)) as := by
  induction as with
  | nil => rfl
  | cons a as ih => simp only [List.map_cons, loadOf, ih]

/-- What a loop does with an entry: visiting it changes what has been found and tells the entries to be
put on, or fails. -/
structure StackLoop (α σ ε : Type) where
  visit : σ → α → Except ε (σ × List α)
  weight : α → Nat
  outweighs : ∀ {s s' : σ} {a : α} {next : List α},
    visit s a = .ok (s', next) → loadOf weight next < weight a

namespace StackLoop

variable {α σ ε : Type}

/-- A loop under way. -/
structure State (α σ : Type) where
  /-- What has been found. -/
  found : σ
  /-- The entries to be visited; the last one is next. -/
  pending : Array α

/-- One turn, for the last entry. -/
def step (L : StackLoop α σ ε) (s : State α σ) (a : α) : Except ε (State α σ) :=
  match L.visit s.found a with
  | .error e => .error e
  | .ok (found, next) => .ok ⟨found, s.pending.pop ++ next⟩

theorem load_step {L : StackLoop α σ ε} {s s' : State α σ} {a : α} (ha : s.pending.back? = some a)
    (h : L.step s a = .ok s') :
    loadOf L.weight s'.pending.toList < loadOf L.weight s.pending.toList := by
  obtain ⟨below, hbelow⟩ := Array.back?_eq_some_iff.1 ha
  unfold step at h
  split at h
  · cases h
  · next found next hvisit =>
    have hlighter := L.outweighs hvisit
    cases h
    simp only [hbelow, Array.pop_push, Array.toList_appendList, Array.toList_push, loadOf_append, loadOf]
    omega

/-- Turns until nothing is left. -/
def run (L : StackLoop α σ ε) (s : State α σ) : Except ε σ :=
  match _h : s.pending.back? with
  | none => .ok s.found
  | some a =>
    match _h' : L.step s a with
    | .error e => .error e
    | .ok s' => run L s'
termination_by loadOf L.weight s.pending.toList
decreasing_by exact load_step _h _h'

variable {L : StackLoop α σ ε}

theorem run_empty (found : σ) : L.run ⟨found, #[]⟩ = .ok found := by
  rw [run]
  rfl

/-- A turn visits the last entry and puts others in its place. -/
theorem run_push (found : σ) (below : Array α) (a : α) :
    L.run ⟨found, below.push a⟩ = L.visit found a >>= fun x => L.run ⟨x.1, below ++ x.2⟩ := by
  rw [run]
  split
  · next hback => simp at hback
  · next a' hback =>
    obtain rfl : a = a' := by simpa using hback
    unfold step
    cases hvisit : L.visit found a with
    | error e => rfl
    | ok x => simp only [Array.pop_push]; rfl

/-- What is above is done with before anything below it is looked at. -/
theorem run_append (found : σ) (below above : Array α) :
    L.run ⟨found, below ++ above⟩ = L.run ⟨found, above⟩ >>= fun found' => L.run ⟨found', below⟩ := by
  generalize hs : (⟨found, above⟩ : State α σ) = s
  induction s using run.induct L generalizing found above with
  | case1 s hback =>
    cases hs
    obtain rfl : above = #[] := by simpa using hback
    rw [Array.append_empty, run_empty]
    rfl
  | case2 s a hback e hstep =>
    cases hs
    obtain ⟨above, rfl⟩ := Array.back?_eq_some_iff.1 hback
    have hvisit : L.visit found a = .error e := by
      unfold step at hstep
      split at hstep
      · next hvisit => rw [hvisit]; cases hstep; rfl
      · cases hstep
    rw [Array.append_push, run_push, run_push, hvisit]
    rfl
  | case3 s a hback s' hstep ih =>
    cases hs
    obtain ⟨above, rfl⟩ := Array.back?_eq_some_iff.1 hback
    unfold step at hstep
    split at hstep
    · cases hstep
    · next found' next hvisit =>
      cases hstep
      have hpending : below ++ above ++ next = below ++ (above ++ next) := by
        apply Array.toList_inj.1
        simp
      rw [Array.append_push, run_push, run_push, hvisit]
      have hrest := ih found' (above ++ next) (by simp)
      simp only [Array.pop_push] at hrest
      exact (congrArg (fun pending => L.run ⟨found', pending⟩) hpending).trans hrest

theorem run_toArray_append (found : σ) (below above : List α) :
    L.run ⟨found, (below ++ above).toArray⟩
      = L.run ⟨found, above.toArray⟩ >>= fun found' => L.run ⟨found', below.toArray⟩ := by
  rw [← run_append, List.append_toArray]

/-- An entry by itself is done with as soon as what is put in its place is. -/
theorem run_singleton (found : σ) (a : α) :
    L.run ⟨found, [a].toArray⟩ = L.visit found a >>= fun x => L.run ⟨x.1, x.2.toArray⟩ := by
  have hpush := run_push (L := L) found #[] a
  simpa using hpush

end StackLoop
end AsyncMigration
