import CredentialSchema.Command.World

/-!
The command that creates a project file with metadata and no properties.
-/
namespace CredentialSchema

structure NewCommand where
  path : String
  title : String
  description : Option String := none
  mode : Mode := .schema
  category : Option String := none
  credentialName : Option String := none
  /-- Whether undeclared attributes are rejected. -/
  strict : Bool := false
  /-- Whether a file that is there is replaced. -/
  force : Bool := false
deriving DecidableEq, Repr

namespace NewCommand

def metadata (c : NewCommand) : Metadata :=
  { title := c.title, description := c.description, mode := c.mode, category := c.category,
    credentialName := c.credentialName, additionalProperties := !c.strict }

/-- Creates the file. Folders that were made on the way stay, also if the file cannot be
written. -/
def run (c : NewCommand) (w : World) : Ending :=
  if w.files.contains c.path && !c.force then
    w.fail [.message ("project file already exists: " ++ c.path ++ " (use --force to overwrite)")]
  else
    let p := Project.new ⟨w.source.next⟩ c.metadata
    w.attempt (w.files.makeParent c.path) fun files =>
    let w := { w with files }
    w.attempt (w.files.writeProject c.path p) fun files =>
      { out := "Created " ++ c.path ++ " (" ++ p.id.text ++ ")\n"
        world := { w with files, source := w.source.advance 1 } }

end NewCommand
end CredentialSchema
