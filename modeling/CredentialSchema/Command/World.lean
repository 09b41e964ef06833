import CredentialSchema.Catalog.Client
import CredentialSchema.Storage.Project

/-!
What commands work on and what they leave: files, an environment, a catalogue service, fresh
identifiers and an engine for patterns go in; an exit code, texts, a chain of causes and the files
come out.
-/
namespace CredentialSchema

structure World where
  files : Files
  environment : Environment
  /-- How attempts to reach the catalogue end while the command runs. -/
  outcomes : Outcomes
  source : IdSource
  /-- Which texts the engine takes for patterns. -/
  isPattern : String → Bool

structure Ending where
  code : Nat := 0
  /-- What was printed as a result. -/
  out : String := ""
  /-- What was printed about the run. -/
  err : String := ""
  /-- Why the command failed, from what was attempted to what went wrong. -/
  causes : List Cause := []
  world : World

namespace World

def fail (w : World) (causes : List Cause) (out : String := "") : Ending :=
  { code := 1, out, causes, world := w }

def attempt (w : World) (x : Except (List Cause) α) (next : α → Ending) : Ending :=
  match x with
  | .ok a => next a
  | .error causes => w.fail causes

/-- The value of an option, else of a variable, else a default. -/
def setting (w : World) (option : Option String) (name default : String) : String :=
  (option.or (w.environment.lookup name)).getD default

def client (w : World) : Except (List Cause) CatalogClient := do
  let config ← (CatalogConfig.ofEnvironment w.environment).mapError fun e =>
    [.message "catalog is not configured", .message e.message]
  (CatalogClient.ofConfig config).mapError fun e =>
    [.message (CatalogError.config e).message, .message e.message]

end World

def CatalogError.causes (e : CatalogError) : List Cause :=
  .message e.message :: match e with
    | .unanswered _ => [.http]
    | .unreadable _ => [.http]
    | .refused .. => []
    | .config e => [.message e.message]

end CredentialSchema
