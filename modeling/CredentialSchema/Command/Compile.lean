import CredentialSchema.Check.Strictness
import CredentialSchema.Command.World
import CredentialSchema.Compile.Artifact

/-!
The command that compiles a project and publishes the document. Nothing is written unless the
document is well formed for its mode and every object level of a schema gives the project's
answer to undeclared attributes; on request also a warning keeps it back.
-/
namespace CredentialSchema

structure CompileCommand where
  project : String
  /-- The mode, if not the project's own. -/
  mode : Option Mode := none
  /-- The file for the document, if it is not printed. -/
  target : Option String := none
  denyWarnings : Bool := false
  contextBase : Option String := none
  vocabularyBase : Option String := none
deriving DecidableEq, Repr

namespace CompileCommand

def namespaces (c : CompileCommand) (w : World) : Namespaces :=
  let standard : Namespaces := {}
  { context := w.setting c.contextBase "CREDEF_CONTEXT_BASE_URL" standard.context
    vocabulary := w.setting c.vocabularyBase "CREDEF_VOCABULARY_BASE_URL" standard.vocabulary }

def findings (p : Project) (a : Artifact) : List Strictness.Finding :=
  match a.mode with
  | .schema => Strictness.audit a.document p.metadata.additionalProperties
  | .context => []

def auditMessage (findings : List Strictness.Finding) : String :=
  "additionalProperties is inconsistent at " ++ toString findings.length ++ " level(s):\n" ++
    "\n".intercalate (findings.map Strictness.Finding.text)

def emit (c : CompileCommand) (w : World) (document : Json.Value) :
    Except (List Cause) (String × Files) :=
  let text := document.pretty ++ "\n"
  match c.target with
  | none => .ok (text, w.files)
  | some path =>
    match w.files.write? path text with
    | some files => .ok ("", files)
    | none => .error [.message ("failed to write output: " ++ path), .io]

def run (c : CompileCommand) (w : World) : Ending :=
  w.attempt (w.files.loadProject c.project) fun p =>
  let checked := p.compileChecked w.isPattern (c.mode.getD p.metadata.mode) (c.namespaces w)
  w.attempt (checked.mapError fun e =>
    [.message ("failed to compile " ++ c.project), .message e.message]) fun a =>
  let differing := findings p a
  let count := toString a.warnings.length
  if !differing.isEmpty then w.fail [.message (auditMessage differing)]
  else if c.denyWarnings && !a.warnings.isEmpty then
    { code := 1
      err := count ++ " warning(s) in " ++ c.project ++ "; nothing written\n"
      world := w }
  else
    w.attempt (c.emit w a.document) fun (out, files) =>
      { out
        err := "Compiled " ++ c.project ++ " as " ++ a.mode.text ++ " (" ++ a.digest.text ++
          ", " ++ count ++ " warning(s))\n"
        world := { w with files } }

end CompileCommand
end CredentialSchema
