import CredentialSchema.Command.Line
import CredentialSchema.Proofs.Storage.Files

/-!
What commands write. A command comes to its only write after everything that can fail, so that it
ends with an error and every file as it was, or well and with one text written at one path. The
text is there only if the command has made sure of what it is meant to make sure of.
-/
namespace CredentialSchema

/-- The two ways to end for a command that writes once, as the last thing it does: nothing that a
file holds is different, or a text that may be written stands at the target. Folders may be made
in both cases. -/
inductive Ending.WritesOnce (f : Files) (target : Option String) (Clears : String → Prop) :
    Ending → Prop
  | kept {e : Ending} (same : e.world.files.entries = f.entries) : WritesOnce f target Clears e
  | wrote {e : Ending} {made : Files} {path text : String} (code : e.code = 0)
    (causes : e.causes = []) (goal : target = some path) (same : made.entries = f.entries)
    (written : made.write? path text = some e.world.files) (cleared : Clears text) :
    WritesOnce f target Clears e

namespace Ending.WritesOnce

variable {f : Files} {target : Option String} {Clears : String → Prop}

theorem attempt {w : World} (same : w.files.entries = f.entries) {x : Except (List Cause) α}
    {next : α → Ending} (h : ∀ a, x = .ok a → WritesOnce f target Clears (next a)) :
    WritesOnce f target Clears (w.attempt x next) := by
  cases x with
  | ok a => exact h a rfl
  | error causes => exact .kept same

variable {e : Ending}

theorem get?_of_failed (h : WritesOnce f target Clears e) (failed : e.code ≠ 0 ∨ e.causes ≠ [])
    (q : Place) : e.world.files.get? q = f.get? q := by
  cases h with
  | kept same => rw [Files.get?, Files.get?, same]
  | wrote code causes => exact (failed.elim (· code) (· causes)).elim

theorem exists_of_changed (h : WritesOnce f target Clears e) {q : Place}
    (changed : e.world.files.get? q ≠ f.get? q) :
    ∃ path text, target = some path ∧ e.world.files.locate? path = some q ∧
      e.world.files.get? q = some text ∧ Clears text := by
  cases h with
  | kept same => exact absurd (by rw [Files.get?, Files.get?, same]) changed
  | @wrote made path text _ _ goal same written cleared =>
    obtain ⟨p, located, after⟩ := Files.exists_of_write?_eq_some written
    rw [after] at changed ⊢
    have here : q = p := by
      by_contra other
      rw [Files.get?_put_of_ne made p text other, Files.get?, same] at changed
      exact changed rfl
    subst here
    exact ⟨path, text, goal, after ▸ located, Files.get?_put made q text, cleared⟩

end Ending.WritesOnce

open Ending (WritesOnce)

variable {w : World}

def NewCommand.Clears (c : NewCommand) (w : World) (text : String) : Prop :=
  text = (FileFormat.ofPath c.path).write (.new ⟨w.source.next⟩ c.metadata)

theorem NewCommand.run_writesOnce (c : NewCommand) :
    WritesOnce w.files (some c.path) (c.Clears w) (c.run w) := by
  rw [run]
  split
  · exact .kept rfl
  · refine .attempt rfl fun made parent => ?_
    have same := Files.entries_makeParent parent
    -- The folders stay if the file cannot be written, and no file is another for it.
    refine .attempt same fun files saved => ?_
    exact .wrote rfl rfl rfl same (Files.write?_of_writeProject saved) rfl

/-- The text of a document that is well formed for its mode and answers as its project does at
every object level, and of which nothing is to be warned if warnings keep it back. -/
def CompileCommand.Clears (c : CompileCommand) (w : World) (text : String) : Prop :=
  ∃ p a, w.files.loadProject c.project = .ok p ∧
    a = p.compileAs (c.mode.getD p.metadata.mode) (c.namespaces w) ∧
    a.mode.check w.isPattern a.document = .ok () ∧ findings p a = [] ∧
    (c.denyWarnings = true → a.warnings = []) ∧ text = a.document.pretty ++ "\n"

theorem Project.compileAs_of_compileChecked {p : Project} {isPattern : String → Bool} {mode : Mode}
    {n : Namespaces} {a : Artifact} (h : p.compileChecked isPattern mode n = .ok a) :
    a = p.compileAs mode n ∧ a.mode.check isPattern a.document = .ok () := by
  cases checked : mode.check isPattern (p.compileAs mode n).document with
  | error e => simp [compileChecked, checked, Except.map] at h
  | ok u =>
    simp only [compileChecked, checked, Except.map, Except.ok.injEq] at h
    subst h
    exact ⟨rfl, checked⟩

theorem CompileCommand.run_writesOnce (c : CompileCommand) :
    WritesOnce w.files c.target (c.Clears w) (c.run w) := by
  refine .attempt rfl fun p loaded => .attempt rfl fun a compiled => ?_
  have compiled := Files.eq_ok_of_mapError_eq_ok compiled
  obtain ⟨same, checked⟩ := Project.compileAs_of_compileChecked compiled
  dsimp only
  split
  · exact .kept rfl
  · next differing =>
    split
    · exact .kept rfl
    · next denied =>
      have audited : findings p a = [] := by simpa using differing
      have quiet : c.denyWarnings = true → a.warnings = [] := by simpa using denied
      refine .attempt rfl fun (out, files) emitted => ?_
      rw [emit] at emitted
      split at emitted
      · obtain ⟨-, rfl⟩ := Prod.mk.inj (Except.ok.inj emitted)
        exact .kept rfl
      · next path goal =>
        split at emitted
        · next written =>
          obtain ⟨-, rfl⟩ := Prod.mk.inj (Except.ok.inj emitted)
          exact .wrote rfl rfl goal rfl written ⟨p, a, loaded, same, checked, audited, quiet, rfl⟩
        · exact absurd emitted nofun

def ImportCommand.Clears (c : ImportCommand) (w : World) (text : String) : Prop :=
  ∃ p report s source, w.files.loadProject c.project = .ok p ∧
    c.apply w p = .ok (.applied report, s, source) ∧
    text = (FileFormat.ofPath c.project).write s.project

theorem ImportCommand.run_writesOnce (c : ImportCommand) :
    WritesOnce w.files (if c.dryRun then none else some c.project) (c.Clears w) (c.run w) := by
  refine .attempt rfl fun p loaded => .attempt rfl fun (outcome, s, source) applied => ?_
  cases outcome with
  | targetMissing => exact .kept rfl
  | stale => exact .kept rfl
  | applied report =>
    dsimp only
    split
    · exact .kept rfl
    · split
      · next saved =>
        obtain ⟨made, parent, saved⟩ := Files.exists_of_bind_eq_ok saved
        exact .wrote rfl rfl rfl (Files.entries_makeParent parent)
          (Files.write?_of_writeProject saved) ⟨p, report, s, source, loaded, applied, rfl⟩
      · exact .kept rfl

namespace Command

def target? : Command → Option String
  | .new c => some c.path
  | .compile c => c.target
  | .importCandidates c => if c.dryRun then none else some c.project
  | .contextUrl _ | .issuers _ => none

/-- What a command has made sure of when it writes a text. -/
def Clears (w : World) (text : String) : Command → Prop
  | .new c => c.Clears w text
  | .compile c => c.Clears w text
  | .importCandidates c => c.Clears w text
  | .contextUrl _ | .issuers _ => False

theorem run_writesOnce (c : Command) :
    WritesOnce w.files c.target? (fun text => c.Clears w text) (c.run w) := by
  cases c with
  | new c => exact c.run_writesOnce
  | compile c => exact c.run_writesOnce
  | importCandidates c => exact c.run_writesOnce
  | contextUrl c => exact .attempt rfl fun _ _ => .kept rfl
  | issuers c => exact .attempt rfl fun _ _ => .attempt rfl fun _ _ => .kept rfl

/-- A command that fails leaves the content of every file, and so does one without a target: a
lookup of a URL or of issuers, a dry run, a compilation that prints. What any other changes is the
file at its target, and only after it has made sure of what the text is meant to hold. -/
theorem run_changes (c : Command) (w : World) :
    ((c.run w).code ≠ 0 ∨ (c.run w).causes ≠ [] →
      ∀ q, (c.run w).world.files.get? q = w.files.get? q) ∧
    (c.target? = none → ∀ q, (c.run w).world.files.get? q = w.files.get? q) ∧
    ∀ q, (c.run w).world.files.get? q ≠ w.files.get? q →
      ∃ path text, c.target? = some path ∧ (c.run w).world.files.locate? path = some q ∧
        (c.run w).world.files.get? q = some text ∧ c.Clears w text := by
  have writes := c.run_writesOnce (w := w)
  refine ⟨writes.get?_of_failed, fun nowhere q => ?_, fun q => writes.exists_of_changed⟩
  by_contra changed
  obtain ⟨path, _, goal, -⟩ := writes.exists_of_changed changed
  exact absurd (nowhere.symm.trans goal) nofun

/-- A project file is kept when a new one is to be made in its place, and when something is imported
into it that is not meant to stay; its schema is written beside it. -/
theorem run_changes_home :
    let p : Project := .new ⟨.numbered 9⟩ { title := "Home" }
    let w : World := {
      files := { entries := [(["p.json"], FileFormat.write p .json)] }, environment := []
      outcomes := fun _ => .lost, source := ⟨Uuid.numbered, 1⟩, isPattern := fun _ => true }
    let renew : Command := .new { path := "p.json", title := "Town" }
    let dry : Command :=
      .importCandidates { project := "p.json", origin := .file "c.json", dryRun := true }
    let publish : Command :=
      .compile { project := "p.json", target := some "s.json", denyWarnings := true }
    (renew.run w).code = 1 ∧
      (renew.run w).world.files.get? ["p.json"] = w.files.get? ["p.json"] ∧
      (dry.run w).world.files.get? ["p.json"] = w.files.get? ["p.json"] ∧
      ∃ text, (publish.run w).world.files.get? ["s.json"] = some text ∧ publish.Clears w text := by
  intro p w renew dry publish
  have refused : (renew.run w).code = 1 := by decide +kernel
  have fits : p.toJson.depth ≤ Json.nestingLimit := by decide +kernel
  have loaded : w.files.loadProject "p.json" = .ok p :=
    (Files.loadProject_of_written rfl rfl Tree.wellFormed_empty Property.everywhere_nil
      Property.everywhere_nil).1 fits
  have published : (publish.run w).world.files.get? ["s.json"] ≠ w.files.get? ["s.json"] := by
    simp only [publish, run, CompileCommand.run, loaded, World.attempt]
    decide +kernel
  obtain ⟨path, text, -, -, there, cleared⟩ := (run_changes publish w).2.2 _ published
  refine ⟨refused, ?_, ?_, text, there, cleared⟩
  · refine (run_changes renew w).1 (.inl ?_) _
    rw [refused]
    decide
  · exact (run_changes dry w).2.1 rfl _

end Command
end CredentialSchema
