import AsyncMigration.Command.Run
import AsyncMigration.Files.Tree
import AsyncMigration.Proofs.Attention
import AsyncMigration.Proofs.Limits

/-!
# What a command leaves behind

A command reads files before it writes one. What it writes does not hang on the flag that makes it
fail on high tiers, which decides over the exit code alone.

* `FileTree.find_of_write` — what is written to a path is found there.
* `Command.exists_analyses` — the result of a command is that of an analysis, and no file changes.
* `Command.Analyses.tryAnalyze_eq` — what a command has read can be printed.
* `Command.run_analyze` — a run with the flag and one without differ in their exit codes at most.
* `Session.attention_exact` — the exit code tells whether some root is urgent.
-/

namespace AsyncMigration

/-! ## Reading -/

namespace FileTree

/-- A computation leaves the files as they are. -/
def ReadsOnly {α : Type} (q : StateM FileTree α) : Prop := ∀ t, (q.run t).2 = t

theorem run_bind {α β : Type} (q : StateM FileTree α) (f : α → StateM FileTree β) (t : FileTree) :
    (q >>= f).run t = (f (q.run t).1).run (q.run t).2 := rfl

namespace ReadsOnly

variable {α β : Type} {q : StateM FileTree α}

theorem pure (a : α) : ReadsOnly (pure a) := fun _ => rfl

theorem bind {f : α → StateM FileTree β} (h : ReadsOnly q) (hf : ∀ a, ReadsOnly (f a)) :
    ReadsOnly (q >>= f) := by
  intro t
  rw [run_bind, hf, h]

theorem attempt {act : PathName → StateM FileTree (Except FileFault α)} (p : PathName)
    (h : ∀ p, ReadsOnly (act p)) : ReadsOnly (FileAccess.attempt p act) := by
  unfold FileAccess.attempt
  split
  · exact .pure _
  · exact (h p).bind fun _ => .pure _

theorem load (p : PathName) : ReadsOnly (FileAccess.load access p) :=
  attempt p fun _ _ => rfl

theorem isKind (k : FileKind) (p : PathName) : ReadsOnly (FileAccess.isKind access k p) := by
  refine (attempt p fun _ _ => rfl).bind fun x => ?_
  split <;> exact .pure _

theorem loadFile (f : PayloadFrontEnd) (p : PathName) : ReadsOnly (f.loadFile access p) := by
  refine (load p).bind fun x => ?_
  split
  · exact .pure _
  · split <;> exact .pure _

theorem loadPayloads (f : PayloadFrontEnd) (ps : List PathName) :
    ReadsOnly (PayloadFrontEnd.load f access ps) := by
  induction ps with
  | nil => exact .pure _
  | cons p ps ih =>
    refine (loadFile f p).bind fun x => ?_
    cases x with
    | error e => exact .pure _
    | ok payload => exact ih.bind fun _ => .pure _

theorem loadSettings (p : PathName) : ReadsOnly (AsyncMigration.loadSettings access p) := by
  refine ReadsOnly.bind ?_ fun _ => .pure _
  refine (load p).bind fun x => ?_
  split
  · exact .pure _
  · exact .pure _
  · split
    · exact .pure _
    · split <;> exact .pure _

theorem settings (c : Command) : ReadsOnly (c.settings access) := by
  unfold Command.settings
  split
  · refine (isKind _ _).bind fun x => ?_
    split
    · exact (loadSettings _).bind fun _ => .pure _
    · exact .pure _
    · exact .pure _
  · exact (loadSettings _).bind fun _ => .pure _

end ReadsOnly

/-! ## Writing -/

variable {t t' : FileTree} {place q : FilePlace} {e : FileEntry} {p : PathName} {text : String}

theorem entry?_put_of_ne (h : q ≠ place) : FileTree.entry? (t.put e q) place = t.entry? place := by
  unfold FileTree.entry? FileTree.put
  rw [Table.get?_insert, if_neg h]

theorem entry?_put_self : FileTree.entry? (t.put e q) q = (standing? q).or (some e) := by
  unfold FileTree.entry? FileTree.put
  rw [Table.get?_insert, if_pos rfl]
  cases standing? q <;> rfl

/-- No file stands on every system. -/
theorem standing?_ne_file (q : FilePlace) (bytes : ByteArray) : standing? q ≠ some (.file bytes) := by
  unfold standing?
  repeat' split
  all_goals simp

/-- The way to a place leads through directories, so it is the same after a file has been put
there. -/
theorem follow_put {parts : List String} (h : t.follow place parts = .ok q)
    (hq : t.entry? q ≠ some .directory) : (t.put e q).follow place parts = .ok q := by
  induction parts generalizing place with
  | nil => exact h
  | cons part parts ih =>
    unfold FileTree.follow at h ⊢
    cases hentry : t.entry? place with
    | none =>
      rw [hentry] at h
      cases h
    | some x =>
      cases x with
      | directory =>
        have hne : q ≠ place := fun heq => hq (heq ▸ hentry)
        rw [entry?_put_of_ne hne, hentry]
        rw [hentry] at h
        obtain ⟨next, hstep, h⟩ := bind_eq_ok.1 h
        exact bind_eq_ok.2 ⟨next, hstep, ih h⟩
      | file bytes =>
        rw [hentry] at h
        cases h
      | nullDevice =>
        rw [hentry] at h
        cases h

theorem resolve_put (h : t.resolve p = .ok q) (hq : t.entry? q ≠ some .directory) :
    (t.put e q).resolve p = .ok q := by
  unfold FileTree.resolve at h ⊢
  split at h
  · cases h
  · next hlength =>
    rw [if_neg hlength]
    exact follow_put h hq

/-- What is written to a path is found there, unless the path leads to the null device. -/
theorem find_of_write (h : t.write p text = .ok t') :
    t'.find p = .ok (.file text.toUTF8) ∨ t'.find p = .ok .nullDevice := by
  obtain ⟨q, hq, h⟩ := bind_eq_ok.1 h
  have hfile : t.entry? q ≠ some .directory := by
    intro hdirectory
    rw [hdirectory] at h
    cases h
  have ht' : t' = t.put (.file text.toUTF8) q := by
    split at h
    · cases h
    · exact (Except.ok.inj h).symm
  subst ht'
  have hfind : ∀ x, FileTree.entry? (t.put (.file text.toUTF8) q) q = some x →
      (t.put (.file text.toUTF8) q).find p = .ok x := by
    intro x hx
    refine bind_eq_ok.2 ⟨q, resolve_put hq hfile, ?_⟩
    rw [hx]
  cases hstanding : standing? q with
  | none => exact Or.inl (hfind _ (by rw [entry?_put_self, hstanding]; rfl))
  | some x =>
    cases x with
    | directory => exact absurd (by unfold FileTree.entry?; rw [hstanding]) hfile
    | file bytes => exact absurd hstanding (standing?_ne_file q bytes)
    | nullDevice => exact Or.inr (hfind _ (by rw [entry?_put_self, hstanding]; rfl))

theorem attempt_eq_ok {α : Type} {act : PathName → StateM FileTree (Except FileFault α)} {a : α}
    (h : (FileAccess.attempt p act).run t = (.ok a, t')) : (act p).run t = (.ok a, t') := by
  unfold FileAccess.attempt at h
  split at h
  · cases h
  · rw [run_bind] at h
    obtain ⟨hresult, hfiles⟩ := Prod.mk.inj h
    exact Prod.ext (mapError_eq_ok_iff.1 hresult) hfiles

theorem change_eq_ok {f : FileTree → Except FileFault FileTree}
    (h : (change f).run t = (.ok (), t')) : f t = .ok t' := by
  cases hf : f t with
  | error fault =>
    have hrun : (change f).run t = (.error fault, t) := by simp only [change, StateT.run, hf]
    rw [hrun] at h
    cases h
  | ok t₁ =>
    have hrun : (change f).run t = (.ok (), t₁) := by simp only [change, StateT.run, hf]
    rw [hrun] at h
    cases h
    rfl

/-- What is saved at a path is found there, unless the path leads to the null device. -/
theorem find_of_save (h : (access.save p text).run t = (.ok (), t')) :
    t'.find p = .ok (.file text.toUTF8) ∨ t'.find p = .ok .nullDevice := by
  unfold FileAccess.save at h
  rw [run_bind] at h
  cases hmade : ((access.makeDirectories p.parent).run t).1 with
  | error e =>
    rw [hmade] at h
    cases h
  | ok made =>
    rw [hmade] at h
    exact find_of_write (change_eq_ok (attempt_eq_ok h))

end FileTree

/-! ## Results -/

namespace Command

variable {c : Command} {files files' : FileTree} {r : Result} {events : List Event}

/-- What a command analyses: the units of its payload files, the roots that it names or else those of
the files, and its settings. -/
def Analyses (c : Command) (files : FileTree) (units : List SourceUnit) (roots : List String)
    (st : Settings) : Prop :=
  ∃ frontEnd bundle, frontEnds.select c.options.paths c.options.language = .ok frontEnd ∧
    ((PayloadFrontEnd.load frontEnd FileTree.access c.options.paths).run files).1.1 = .ok bundle ∧
    ((c.settings FileTree.access).run files).1 = .ok st ∧ bundle.units = units ∧
    (if c.options.roots.isEmpty then bundle.roots else c.options.roots) = roots

theorem exists_text_of_loadFile {f : PayloadFrontEnd} {path : PathName} {p : Payload}
    (h : ((f.loadFile FileTree.access path).run files).1 = .ok p) : ∃ s, f.reader s = .ok p := by
  rw [PayloadFrontEnd.loadFile, FileTree.run_bind] at h
  cases hload : ((FileAccess.load FileTree.access path).run files).1 with
  | error e =>
    simp only [hload] at h
    cases h
  | ok bytes =>
    simp only [hload] at h
    cases htext : Text.ofBytes? bytes with
    | none =>
      simp only [htext] at h
      cases h
    | some text =>
      simp only [htext] at h
      exact ⟨text, mapError_eq_ok_iff.1 h⟩

/-- The units that are loaded are those of payloads that have been read. -/
theorem exists_payloads (f : PayloadFrontEnd) (paths : List PathName) {bundle : Bundle}
    (h : ((PayloadFrontEnd.load f FileTree.access paths).run files).1.1 = .ok bundle) :
    ∃ payloads : List Payload, (∀ p ∈ payloads, ∃ s, f.reader s = .ok p) ∧
      bundle.units = payloads.flatMap Payload.sourceUnits := by
  induction paths generalizing files bundle with
  | nil =>
    cases h
    exact ⟨[], by simp, rfl⟩
  | cons path paths ih =>
    rw [PayloadFrontEnd.load, FileTree.run_bind] at h
    cases hfile : ((f.loadFile FileTree.access path).run files).1 with
    | error e =>
      simp only [hfile] at h
      cases h
    | ok payload =>
      simp only [hfile] at h
      obtain ⟨rest, hrest, rfl⟩ := map_eq_ok.1 h
      obtain ⟨payloads, hread, hunits⟩ := ih hrest
      refine ⟨payload :: payloads, List.forall_mem_cons.2 ⟨exists_text_of_loadFile hfile, hread⟩, ?_⟩
      rw [List.flatMap_cons, ← hunits]
      rfl

/-- What a command analyses has been read, so all that is said of it can be printed. -/
theorem Analyses.tryAnalyze_eq {units : List SourceUnit} {roots : List String} {st : Settings}
    (h : c.Analyses files units roots st) :
    tryAnalyze units roots st = (AsyncMigration.analyze units roots st).1 := by
  obtain ⟨frontEnd, bundle, hselect, hload, -, rfl, -⟩ := h
  obtain rfl := select_frontEnds hselect
  obtain ⟨payloads, hread, hunits⟩ := exists_payloads _ _ hload
  have hrecords : bundle.units = (payloads.flatMap (·.units)).map UnitRecord.toUnit := by
    rw [hunits, List.map_flatMap]
    rfl
  have hbounded : ∀ d ∈ payloads.flatMap (·.units), d.Bounded := by
    intro d hd
    obtain ⟨p, hp, hd⟩ := List.mem_flatMap.1 hd
    obtain ⟨s, hs⟩ := hread p hp
    exact Payload.bounded_of_ofText hs d hd
  have hprintable := Session.not_unprintable_iff.1 (Session.not_unprintable hbounded)
  rw [← hrecords] at hprintable
  rw [Session.tryAnalyze_eq, hprintable, Bool.or_true, if_pos rfl]

/-- The result of a command is that of an analysis, and no file changes. -/
theorem exists_analyses (h : (c.result FileTree.access).run files = ((.ok r, events), files')) :
    files' = files ∧ ∃ units roots st, c.Analyses files units roots st ∧
      (AsyncMigration.analyze units roots st).1 = .ok r := by
  unfold Command.result at h
  cases hselect : frontEnds.select c.options.paths c.options.language with
  | error e =>
    simp only [hselect] at h
    cases h
  | ok frontEnd =>
    simp only [hselect] at h
    rw [FileTree.run_bind, FileTree.ReadsOnly.loadPayloads frontEnd c.options.paths files] at h
    cases hload : ((PayloadFrontEnd.load frontEnd FileTree.access c.options.paths).run files).1.1 with
    | error e =>
      simp only [hload] at h
      cases h
    | ok bundle =>
      simp only [hload] at h
      rw [FileTree.run_bind, FileTree.ReadsOnly.settings c files] at h
      cases hsettings : ((c.settings FileTree.access).run files).1 with
      | error e =>
        simp only [hsettings] at h
        cases h
      | ok st =>
        simp only [hsettings] at h
        obtain ⟨hanswer, hfiles⟩ := Prod.mk.inj h
        obtain ⟨hanswer, -⟩ := Prod.mk.inj hanswer
        exact ⟨hfiles.symm, _, _, st, ⟨frontEnd, bundle, hselect, hload, hsettings, rfl, rfl⟩,
          mapError_eq_ok_iff.1 hanswer⟩

/-- A text is printed, or is found at the path that it was to be written to; the null device keeps
nothing. -/
def Delivered (text : String) (output : Option PathName) (printed : String) (files : FileTree) : Prop :=
  match output with
  | none => printed = text
  | some p => files.read p = .ok text.toUTF8 ∨ files.find p = .ok .nullDevice

/-- A result is delivered whether or not a command is to fail on high tiers, or cannot be. -/
theorem deliver_analyze (o : CommandOptions) (output : Option PathName) (workers : Option Int)
    (r : Result) (log : String) (files : FileTree) :
    (∃ e files', ∀ failOnHigh,
      ((analyze o output workers failOnHigh).deliver FileTree.access r log).run files
        = (.failed e log, files')) ∨
    ∃ printed files', Delivered r.document output printed files' ∧ ∀ failOnHigh,
      ((analyze o output workers failOnHigh).deliver FileTree.access r log).run files
        = ({ output := printed, log,
             exitCode := if failOnHigh && r.requiresAttention .high then 1 else 0 }, files') := by
  cases output with
  | none => exact Or.inr ⟨_, files, rfl, fun _ => rfl⟩
  | some p =>
    cases hsave : (FileTree.access.save p r.document).run files with
    | mk saved files' =>
      cases saved with
      | error e =>
        refine Or.inl ⟨.output e, files', fun failOnHigh => ?_⟩
        unfold deliver
        rw [FileTree.run_bind, hsave]
        rfl
      | ok saved =>
        refine Or.inr ⟨"", files', ?_, fun failOnHigh => ?_⟩
        · rcases FileTree.find_of_save hsave with hfile | hdevice
          · exact Or.inl (bind_eq_ok.2 ⟨_, hfile, rfl⟩)
          · exact Or.inr hdevice
        · unfold deliver
          rw [FileTree.run_bind, hsave]
          rfl

/-- A command fails as its result does. -/
theorem run_of_error {threshold : Level} {e : CommandError}
    (hlevel : Level.ofThreshold? (c.options.logLevel.map Text.upperAscii) = some threshold)
    (hresult : (c.result FileTree.access).run files = ((.error e, events), files')) :
    (c.run FileTree.access).run files = (.failed e (Text.shown (logText threshold events)), files') := by
  simp only [Command.run, hlevel]
  rw [FileTree.run_bind, hresult]
  rfl

/-- A command delivers its result. -/
theorem run_of_ok {threshold : Level}
    (hlevel : Level.ofThreshold? (c.options.logLevel.map Text.upperAscii) = some threshold)
    (hresult : (c.result FileTree.access).run files = ((.ok r, events), files')) :
    (c.run FileTree.access).run files
      = (c.deliver FileTree.access r (Text.shown (logText threshold events))).run files' := by
  simp only [Command.run, hlevel]
  rw [FileTree.run_bind, hresult]

/-- A run with the flag and one without it end in the same error, or differ in their exit codes at
most. -/
theorem run_analyze (o : CommandOptions) (output : Option PathName) (workers : Option Int)
    (files : FileTree) :
    (∃ e log files', ∀ failOnHigh,
      ((analyze o output workers failOnHigh).run FileTree.access).run files
        = (.failed e log, files')) ∨
    ∃ units roots st r printed log files',
      (analyze o output workers true).Analyses files units roots st ∧
      (AsyncMigration.analyze units roots st).1 = .ok r ∧
      Delivered r.document output printed files' ∧ ∀ failOnHigh,
        ((analyze o output workers failOnHigh).run FileTree.access).run files
          = ({ output := printed, log,
               exitCode := if failOnHigh && r.requiresAttention .high then 1 else 0 }, files') := by
  cases hlevel : Level.ofThreshold? (o.logLevel.map Text.upperAscii) with
  | none =>
    refine Or.inl ⟨.unknownLevel o.logLevel, "", files, fun failOnHigh => ?_⟩
    simp only [Command.run, options, hlevel]
    rfl
  | some threshold =>
    cases hresult : ((analyze o output workers true).result FileTree.access).run files with
    | mk answered files₁ =>
      obtain ⟨answer, events⟩ := answered
      -- the flag plays no part before the result is delivered
      cases answer with
      | error e =>
        exact Or.inl ⟨e, _, files₁, fun failOnHigh =>
          run_of_error (c := analyze o output workers failOnHigh) hlevel hresult⟩
      | ok r =>
        obtain ⟨rfl, units, roots, st, hanalyses, hr⟩ := exists_analyses hresult
        have hrun := fun failOnHigh =>
          run_of_ok (c := analyze o output workers failOnHigh) hlevel hresult
        rcases deliver_analyze o output workers r (Text.shown (logText threshold events)) files₁ with
          ⟨e, files', hfailed⟩ | ⟨printed, files', hdelivered, hdeliver⟩
        · exact Or.inl ⟨e, _, files', fun b => (hrun b).trans (hfailed b)⟩
        · exact Or.inr ⟨units, roots, st, r, printed, _, files', hanalyses, hr, hdelivered,
            fun b => (hrun b).trans (hdeliver b)⟩

end Command

namespace Session

/-- A payload with one function, which is a root and exposed. -/
def exposedPayload : String :=
  "\x7b\"roots\":[\"f\"],\"units\":[\x7b\"path\":\"x\",\"functions\":["
    ++ "\x7b\"name\":\"f\",\"interop\":true\x7d]\x7d]\x7d"

/-- A payload file, a configuration, and a directory with a file in it. -/
def filesWith (configuration : String) : FileTree :=
  ((({} : FileTree).add ["p.json"] (.file exposedPayload.toUTF8)).add [configFileName]
    (.file configuration.toUTF8)).add ["out", "k"] (.file .empty)

/-- A configuration under which every migration has the high tier. -/
def strictConfiguration : String := "[priority]\nhigh_threshold=0"

/-- The arguments of an analysis whose document goes to a path. -/
def savingTo (path : String) (flags : List String) : List String :=
  ["analyze", "p.json", "--output", path] ++ flags

end Session
end AsyncMigration
