import CredentialSchema.Command.World
import CredentialSchema.Url.Context

/-!
The command that prints the URL a context document identifies itself with, from a project's
metadata or from the given parts.
-/
namespace CredentialSchema

structure ContextUrlCommand where
  project : Option String := none
  title : Option String := none
  category : Option String := none
  credentialName : Option String := none
  contextBase : Option String := none
deriving DecidableEq, Repr

namespace ContextUrlCommand

def url (c : ContextUrlCommand) (w : World) : Except (List Cause) String :=
  let base := w.setting c.contextBase "CREDEF_CONTEXT_BASE_URL" ContextUrl.defaultBase
  match c.project with
  | some path => (w.files.loadProject path).map fun p =>
      ContextUrl.derive base p.metadata.title p.metadata.category p.metadata.credentialName
  | none =>
    if c.title.isNone && c.credentialName.isNone then
      .error [.message "either --title, --credential-name or --project is required"]
    else .ok (ContextUrl.derive base (c.title.getD "") c.category c.credentialName)

def run (c : ContextUrlCommand) (w : World) : Ending :=
  w.attempt (c.url w) fun url => { out := url ++ "\n", world := w }

end ContextUrlCommand
end CredentialSchema
