import CredentialSchema.Command.Import
import CredentialSchema.Proofs.Session.Run
import CredentialSchema.Proofs.Storage.Files
import CredentialSchema.Proofs.Vocabulary.Constrained

/-!
What an import leaves in the project file. The command applies the candidates that it finds and
saves the project; the ticket of its session is always current, since nothing comes between. What
was saved loads again if it is nested no deeper than the reader goes and every bound is a number;
neither the import nor the writer sees to that.
-/
namespace CredentialSchema

open Property (Everywhere)

namespace ImportCommand

variable {c : ImportCommand} {w : World} {p : Project}

/-- The candidates that a command finds where it looks for them. -/
def Finds (c : ImportCommand) (w : World) (candidates : List Candidate) : Prop :=
  match c.origin with
  | .file path => w.files.load "candidates" path Candidate.listOfFile? = .ok candidates
  | .catalog classification => ∃ client entries, w.client = .ok client ∧
    (client.listEntries classification w.outcomes).result = .ok entries ∧
    candidates = entries.map CatalogEntry.candidate

theorem completeImport_start (p : Project) (target : Option PropertyId)
    (candidates : List Candidate) (source : IdSource) :
    (Session.beginImport (.start p) target).2.completeImport
        (Session.beginImport (.start p) target).1 candidates source =
      (p.tree.import? target candidates source).map fun
        | none => (.targetMissing, (Session.beginImport (.start p) target).2, source)
        | some (t, source, report) =>
          (.applied report, (Session.beginImport (.start p) target).2.withTree t, source) := by
  have current : (Session.beginImport (.start p) target).1.isCurrent
      (Session.beginImport (.start p) target).2.generation
      (Session.beginImport (.start p) target).2.tree = true := by
    simp [Session.beginImport, Ticket.issue, Ticket.isCurrent, Session.tree]
  exact Session.completeImport_of_current current candidates source

theorem apply_of_finds {candidates : List Candidate} (h : c.Finds w candidates) :
    ∃ causes : Violation → List Cause, c.apply w p =
      ((p.tree.import? c.parent candidates w.source).map fun
        | none => (.targetMissing, (Session.beginImport (.start p) c.parent).2, w.source)
        | some (t, source, report) =>
          (.applied report, (Session.beginImport (.start p) c.parent).2.withTree t,
            source)).mapError causes := by
  cases origin : c.origin with
  | file path =>
    simp only [Finds, origin] at h
    simp only [apply, origin, fromFile, h]
    refine ⟨fun v => [.message v.message], ?_⟩
    rw [← completeImport_start]
    rfl
  | catalog classification =>
    simp only [Finds, origin] at h
    obtain ⟨client, entries, reached, fetched, rfl⟩ := h
    simp only [apply, origin, fromCatalog, reached]
    refine ⟨fun v => [.message ("import of classification '" ++ classification ++ "' failed"),
      .message v.message], ?_⟩
    rw [← completeImport_start]
    simp only [Bind.bind, Except.bind, fetched, Session.importFrom, Except.map]

theorem exists_finds {a : Applied} (h : c.apply w p = .ok a) :
    ∃ candidates, c.Finds w candidates := by
  rw [apply] at h
  split at h
  · next path origin =>
    obtain ⟨candidates, found, -⟩ := Files.exists_of_bind_eq_ok h
    exact ⟨candidates, by simpa [Finds, origin] using found⟩
  · next classification origin =>
    obtain ⟨client, reached, h⟩ := Files.exists_of_bind_eq_ok h
    cases fetched : (client.listEntries classification w.outcomes).result with
    | error e => simp [fetched, Session.importFrom, Except.map] at h
    | ok entries =>
      exact ⟨_, by rw [Finds, origin]; exact ⟨client, entries, reached, fetched, rfl⟩⟩

theorem import?_of_apply {report : ImportReport} {s : Session} {source : IdSource}
    (h : c.apply w p = .ok (.applied report, s, source)) :
    ∃ candidates, c.Finds w candidates ∧
      p.tree.import? c.parent candidates w.source = .ok (some (s.tree, source, report)) ∧
      s.project = { p with tree := s.tree } := by
  obtain ⟨candidates, found⟩ := exists_finds h
  obtain ⟨causes, applied⟩ := apply_of_finds (p := p) found
  refine ⟨candidates, found, ?_⟩
  rw [applied] at h
  cases imported : p.tree.import? c.parent candidates w.source with
  | error v => simp [imported, Except.map, Except.mapError] at h
  | ok made =>
    cases made with
    | none => simp [imported, Except.map, Except.mapError] at h
    | some made =>
      obtain ⟨t, source', report'⟩ := made
      simp only [imported, Except.map, Except.mapError, Except.ok.injEq, Prod.mk.injEq,
        ImportOutcome.applied.injEq] at h
      obtain ⟨rfl, rfl, rfl⟩ := h
      exact ⟨rfl, rfl⟩

theorem run_saves (loaded : w.files.loadProject c.project = .ok p) (wet : c.dryRun = false)
    (done : (c.run w).code = 0) : ∃ report s source files,
      c.apply w p = .ok (.applied report, s, source) ∧
      w.files.saveProject c.project s.project = .ok files ∧
      (c.run w).world = { w with files, source } := by
  simp only [run, loaded, World.attempt] at done ⊢
  cases applied : c.apply w p with
  | error causes => simp [applied, World.fail] at done
  | ok outcome =>
    obtain ⟨report | _ | _, s, source⟩ := outcome
    · simp only [applied, wet] at done ⊢
      cases saved : w.files.saveProject c.project s.project with
      | error causes => simp [saved, World.fail] at done
      | ok files => exact ⟨report, s, source, files, rfl, saved, by simp⟩
    · simp [applied] at done
    · simp [applied, World.fail] at done

theorem run_of_finds {candidates : List Candidate} {t : Tree} {source : IdSource}
    {report : ImportReport} {files : Files} (loaded : w.files.loadProject c.project = .ok p)
    (wet : c.dryRun = false) (found : c.Finds w candidates)
    (imported : p.tree.import? c.parent candidates w.source = .ok (some (t, source, report)))
    (saved : w.files.saveProject c.project { p with tree := t } = .ok files) :
    (c.run w).code = 0 ∧ (c.run w).world = { w with files, source } ∧
      ∃ s, c.apply w p = .ok (.applied report, s, source) ∧ s.project = { p with tree := t } := by
  obtain ⟨causes, applied⟩ := apply_of_finds (p := p) found
  rw [imported] at applied
  have saved : w.files.saveProject c.project
      ((Session.beginImport (.start p) c.parent).2.withTree t).project = .ok files := saved
  refine ⟨?_, ?_, _, applied, rfl⟩ <;>
    simp [run, loaded, World.attempt, applied, Except.map, Except.mapError, wet, saved]

theorem storable_of_finds {candidates : List Candidate} (h : c.Finds w candidates) :
    ∀ k ∈ candidates, k.Constrained Constraints.Storable := by
  rw [Finds] at h
  split at h
  · obtain ⟨text, d, -, parsed, listed⟩ := Files.exists_of_load_eq_ok h
    exact Candidate.constrained_of_file Constraints.loaded_storable
      (fun s _ => Document.each_resolve s) (FileFormat.readable_read? parsed) listed
  · obtain ⟨client, entries, -, fetched, rfl⟩ := h
    exact CatalogClient.constrained_of_listEntries
      (Constraints.loaded_storable.mono Document.readable_of_fromJson) fetched

theorem finite_of_finds {candidates : List Candidate} (h : c.Finds w candidates)
    (json : ∀ path, c.origin = .file path → FileFormat.ofPath path = .json) :
    ∀ k ∈ candidates, k.Constrained Constraints.Finite := by
  rw [Finds] at h
  split at h
  · next path origin =>
    obtain ⟨text, d, -, parsed, listed⟩ := Files.exists_of_load_eq_ok h
    rw [json path origin] at parsed
    exact Candidate.constrained_of_file Constraints.loaded_finite (fun s plain => plain.elim)
      (Json.fromJson_read? parsed) listed
  · obtain ⟨client, entries, -, fetched, rfl⟩ := h
    exact CatalogClient.constrained_of_listEntries Constraints.loaded_finite fetched

/-- What an import leaves in the project file: the project that it made, whose tree is well formed
and whose listed values can be written and read again. -/
theorem run_writes (json : FileFormat.ofPath c.project = .json)
    (loaded : w.files.loadProject c.project = .ok p) (wet : c.dryRun = false)
    (done : (c.run w).code = 0)
    (fresh : w.source.Fresh (c.run w).world.source p.tree.ids) :
    ∃ report s source, c.apply w p = .ok (.applied report, s, source) ∧
      (c.run w).world.files.read? c.project = some (FileFormat.write s.project .json) ∧
      s.tree.WellFormed ∧ Everywhere Property.Storable s.tree.roots ∧
      ((∀ path, c.origin = .file path → FileFormat.ofPath path = .json) →
        Everywhere Property.Finite s.tree.roots) := by
  obtain ⟨report, s, source, files, applied, saved, left⟩ := run_saves loaded wet done
  obtain ⟨candidates, found, imported, project⟩ := import?_of_apply applied
  rw [left] at fresh ⊢
  have walk := Tree.imports_of_import? imported fresh
  have there := Files.read?_saveProject saved
  rw [json] at there
  refine ⟨report, s, source, applied, there, ?_, ?_, fun named => ?_⟩
  · obtain ⟨text, d, -, -, load⟩ := Files.exists_of_loadProject_eq_ok loaded
    have before := (Project.load_cases load).1
    have sound := Tree.import?_sound imported
    exact ⟨sound.nodup fresh before.distinct, sound.legal before.legal⟩
  · exact walk.constrained Constraints.storable_formatFree
      (Files.constrained_of_loadProject
        (Constraints.loaded_storable.mono Document.readable_of_fromJson) json loaded)
      (storable_of_finds found)
  · exact walk.constrained Constraints.finite_formatFree
      (Files.constrained_of_loadProject Constraints.loaded_finite json loaded)
      (finite_of_finds found named)

/-- After an import that succeeds, the project file is loaded as the project that the import made,
exactly if the stored form is not nested beyond the limit and every bound is a number; a file that
is nested deeper is not loaded at all. Bounds that are no numbers come from YAML text only. -/
theorem run_reloads (json : FileFormat.ofPath c.project = .json)
    (loaded : w.files.loadProject c.project = .ok p) (wet : c.dryRun = false)
    (done : (c.run w).code = 0)
    (fresh : w.source.Fresh (c.run w).world.source p.tree.ids) :
    ∃ report s source, c.apply w p = .ok (.applied report, s, source) ∧
      ((c.run w).world.files.loadProject c.project = .ok s.project.reloaded ↔
        s.project.toJson.depth ≤ Json.nestingLimit ∧ Everywhere Property.Finite s.tree.roots) ∧
      (Everywhere Property.Finite s.tree.roots → Json.nestingLimit < s.project.toJson.depth →
        ∃ causes, (c.run w).world.files.loadProject c.project = .error causes) ∧
      ((∀ path, c.origin = .file path → FileFormat.ofPath path = .json) →
        Everywhere Property.Finite s.tree.roots) := by
  obtain ⟨report, s, source, applied, there, wellFormed, storable, finite⟩ :=
    run_writes json loaded wet done fresh
  have reload := Files.loadProject_of_written json there wellFormed storable
  refine ⟨report, s, source, applied, ⟨fun loads => ?_, fun h => ?_⟩, fun h => (reload h).2, finite⟩
  · have h := Files.constrained_of_loadProject Constraints.loaded_finite json loads
    refine ⟨?_, h⟩
    by_contra deep
    obtain ⟨causes, error⟩ := (reload h).2 (Nat.lt_of_not_le deep)
    simp [error] at loads
  · exact (reload h.2).1 h.1

def folder (p : Project) (candidates : List Candidate) : Files where
  entries := [(["p.json"], FileFormat.write p .json),
    (["c.json"], (Json.Value.array (candidates.map Candidate.toJson)).pretty ++ "\n")]

def inFolder : ImportCommand := { project := "p.json", origin := .file "c.json" }

theorem ofPath_inFolder (path : String) (named : inFolder.origin = .file path) :
    FileFormat.ofPath path = .json := by
  obtain rfl := CandidateOrigin.file.inj named
  rfl

theorem run_inFolder {id : ProjectId} {m : Metadata} {cs : List Candidate} {w : World}
    (files : w.files = folder (.new id m) cs)
    (inRange : (Json.Value.array (cs.map Candidate.toJson)).InRange)
    (listed : Candidate.listOfFile? (Yaml.limited Json.nestingLimit
      (.ofValue (.array (cs.map Candidate.toJson)))) = some cs)
    {good : Tree → Bool}
    (imported : ((Tree.empty.import? none cs w.source).toOption.join.any fun r =>
      decide (w.source.Fresh r.2.1 Tree.empty.ids) && good r.1) = true) :
    w.files.loadProject inFolder.project = .ok (.new id m) ∧ (inFolder.run w).code = 0 ∧
      w.source.Fresh (inFolder.run w).world.source (Project.new id m).tree.ids ∧
      ∃ report s source, inFolder.apply w (.new id m) = .ok (.applied report, s, source) ∧
        s.project = { Project.new id m with tree := s.tree } ∧ good s.tree = true := by
  obtain ⟨⟨t, source, report⟩, made, checked⟩ := (Option.any_eq_true _ _).1 imported
  obtain ⟨fresh, good⟩ := Bool.and_eq_true_iff.1 checked
  have made : Tree.empty.import? none cs w.source = .ok (some (t, source, report)) := by
    revert made
    rcases Tree.empty.import? none cs w.source with v | _ | r <;> simp [Except.toOption]
  have project : w.files.read? "p.json" = some (FileFormat.write (.new id m) .json) := by
    rw [files]
    rfl
  have candidates : w.files.read? "c.json" =
      some ((Json.Value.array (cs.map Candidate.toJson)).pretty ++ "\n") := by
    rw [files]
    rfl
  have shallow : (Project.new id m).toJson.depth ≤ Json.nestingLimit := by
    rw [Project.depth_toJson]
    exact (by decide : Tree.empty.toJson.depth + 1 ≤ Json.nestingLimit)
  have loaded := (Files.loadProject_of_written rfl project Tree.wellFormed_empty
    Property.everywhere_nil Property.everywhere_nil).1 shallow
  have found : inFolder.Finds w cs := by
    refine (Files.load_eq_ok_iff candidates).2 ?_
    change (Json.read? _).bind _ = _
    rw [Json.read?_pretty inRange, Option.bind_some, listed]
  have saved : ∃ files, w.files.saveProject "p.json" { Project.new id m with tree := t } =
      .ok files := by
    rw [files]
    exact ⟨_, rfl⟩
  obtain ⟨files, saved⟩ := saved
  obtain ⟨done, left, s, applied, same⟩ := run_of_finds loaded rfl found made saved
  have tree : s.tree = t := congrArg Project.tree same
  subst tree
  refine ⟨loaded, done, ?_, report, s, source, applied, same, good⟩
  rw [left]
  exact of_decide_eq_true fresh

theorem run_reloads_dates : ∃ c : ImportCommand, ∃ w : World, ∃ s : Session,
    (c.run w).code = 0 ∧ s.tree.size = 2 ∧
      (c.run w).world.files.loadProject c.project = .ok s.project.reloaded := by
  let dates : Candidate := { id := "dates", name := "dates", valueType := "date[]" }
  let w : World := {
    files := folder (.new ⟨.numbered 0⟩ {}) [dates], environment := [], outcomes := fun _ => .lost
    source := ⟨Uuid.numbered, 1⟩, isPattern := fun _ => true }
  have inRange : (Json.Value.array ([dates].map Candidate.toJson)).InRange :=
    ⟨⟨trivial, trivial, trivial, trivial⟩, trivial⟩
  have listed : Candidate.listOfFile? (Yaml.limited Json.nestingLimit
      (.ofValue (.array ([dates].map Candidate.toJson)))) = some [dates] := by decide +kernel
  have json : FileFormat.ofPath inFolder.project = .json := rfl
  obtain ⟨loaded, done, fresh, _, s, _, applied, project, good⟩ := @run_inFolder ⟨.numbered 0⟩ {}
    [dates] w rfl inRange listed (fun t => t.size == 2 && t.toJson.depth == 4) (by decide +kernel)
  obtain ⟨_, _, _, applied', reload, -, finite⟩ := run_reloads json loaded rfl done fresh
  have same := Except.ok.inj (applied.symm.trans applied')
  obtain rfl := (Prod.mk.inj (Prod.mk.inj same).2).1
  obtain ⟨size, depth⟩ := (by simpa using good : s.tree.size = 2 ∧ s.tree.toJson.depth = 4)
  refine ⟨inFolder, w, s, done, size, reload.2 ⟨?_, finite ofPath_inFolder⟩⟩
  rw [Project.depth_toJson, project, depth]
  decide

/-- Lists inside lists, so many around an empty one. -/
def nest : Nat → Json.Value
  | 0 => .array []
  | n + 1 => .array [nest n]

theorem inRange_nest (n : Nat) : (nest n).InRange := by
  induction n with
  | zero => trivial
  | succ n ih => exact ⟨ih, trivial⟩

/-- A candidate of a file that is nested up to the limit is imported at the top level, and the
project file is nested deeper: it cannot be loaded any more. -/
theorem exists_run_not_reloaded : ∃ c : ImportCommand, ∃ w : World, ∃ p : Project,
    FileFormat.ofPath c.project = .json ∧ w.files.loadProject c.project = .ok p ∧
      c.dryRun = false ∧ (c.run w).code = 0 ∧
      w.source.Fresh (c.run w).world.source p.tree.ids ∧
      ∃ causes, (c.run w).world.files.loadProject c.project = .error causes := by
  let tags : Candidate := {
    id := "tags", name := "tags", valueType := "text"
    constraints := some { choices := [nest 122] } }
  let w : World := {
    files := folder (.new ⟨.numbered 0⟩ {}) [tags], environment := [], outcomes := fun _ => .lost
    source := ⟨Uuid.numbered, 1⟩, isPattern := fun _ => true }
  have inRange : (Json.Value.array ([tags].map Candidate.toJson)).InRange :=
    ⟨⟨trivial, trivial, trivial, ⟨⟨inRange_nest 122, trivial⟩, trivial⟩, trivial⟩, trivial⟩
  have listed : Candidate.listOfFile? (Yaml.limited Json.nestingLimit
      (.ofValue (.array ([tags].map Candidate.toJson)))) = some [tags] := by decide +kernel
  have json : FileFormat.ofPath inFolder.project = .json := rfl
  have wet : inFolder.dryRun = false := rfl
  obtain ⟨loaded, done, fresh, _, s, _, applied, project, good⟩ := @run_inFolder ⟨.numbered 0⟩ {}
    [tags] w rfl inRange listed (fun t => t.toJson.depth == 127) (by decide +kernel)
  obtain ⟨_, _, _, applied', there, wellFormed, storable, finite⟩ :=
    run_writes json loaded wet done fresh
  have same := Except.ok.inj (applied.symm.trans applied')
  obtain rfl := (Prod.mk.inj (Prod.mk.inj same).2).1
  have nested : Json.nestingLimit < s.project.toJson.depth := by
    rw [Project.depth_toJson, project, eq_of_beq good]
    decide
  have fails := (Files.loadProject_of_written json there wellFormed storable
    (finite ofPath_inFolder)).2 nested
  exact ⟨inFolder, w, .new ⟨.numbered 0⟩ {}, json, loaded, wet, done, fresh, fails⟩

end ImportCommand
end CredentialSchema
