import CredentialSchema.Check.Context
import CredentialSchema.Check.Schema
import CredentialSchema.Compile.Context
import CredentialSchema.Compile.Schema
import CredentialSchema.Digest.Content
import CredentialSchema.Project.Basic

/-!
Artifacts: what a project publishes, a document of either mode with the warnings of its pass
and its content digest. A checked artifact has a document that is well formed for its mode.
-/
namespace CredentialSchema

structure Artifact where
  mode : Mode
  document : Json.Value
  warnings : List Warning
  digest : ContentDigest
deriving DecidableEq, Repr

inductive CheckError
  | invalidSchema
  | malformedContext (m : ContextCheck.Malformed)
deriving DecidableEq, Repr

/-- The wording; what exactly is wrong with a schema is not told. -/
def CheckError.message : CheckError → String
  | .invalidSchema => "schema check error: invalid JSON Schema: <...>"
  | .malformedContext m => "schema check error: " ++ m.message

namespace Project

def pass (p : Project) (mode : Mode) (n : Namespaces) : Compiled :=
  match mode with
  | .schema => SchemaPass.compile p.tree p.metadata
  | .context => ContextPass.compile p.tree p.metadata n

def compileAs (p : Project) (mode : Mode) (n : Namespaces) : Artifact :=
  let c := p.pass mode n
  ⟨mode, c.document, c.warnings, .ofValue c.document⟩

def compile (p : Project) (n : Namespaces) : Artifact := p.compileAs p.metadata.mode n

end Project

def Mode.check (mode : Mode) (isPattern : String → Bool) (document : Json.Value) :
    Except CheckError Unit :=
  match mode with
  | .schema => if SchemaCheck.isValid isPattern document then .ok () else .error .invalidSchema
  | .context => (ContextCheck.check document).mapError .malformedContext

/-- Compiles a project in a mode and refuses a document that is not well formed. -/
def Project.compileChecked (p : Project) (isPattern : String → Bool) (mode : Mode)
    (n : Namespaces) : Except CheckError Artifact :=
  let artifact := p.compileAs mode n
  (mode.check isPattern artifact.document).map fun _ => artifact

end CredentialSchema
