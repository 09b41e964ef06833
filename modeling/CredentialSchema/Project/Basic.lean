import CredentialSchema.Project.Metadata
import CredentialSchema.Tree.Loading

/-!
Projects: an identifier, metadata and a property tree, stored together as one document.
-/
namespace CredentialSchema

structure Project where
  id : ProjectId
  metadata : Metadata
  tree : Tree
deriving DecidableEq, Repr, Inhabited

namespace Project

def new (id : ProjectId) (metadata : Metadata) : Project := ⟨id, metadata, .empty⟩

def toJson (p : Project) : Json.Value :=
  .object [("id", p.id.uuid.toJson), ("metadata", p.metadata.toJson),
    ("properties", p.tree.toJson)]

def toDocument (p : Project) : Document :=
  .mapping (Document.ofMembers [("id", p.id.uuid.toJson), ("metadata", p.metadata.toJson)] ++
    [(.text "properties", .sequence (Property.listToDocument p.tree.roots))])

/-- Loads a project. A malformed part anywhere goes before a defect of the tree. -/
def load (d : Document) : Except LoadError Project :=
  let parts : Option (ProjectId × Metadata × List Property) := do
    let f ← d.fields? ["id", "metadata", "properties"]
    return (⟨← f.required "id" Uuid.ofDocument?⟩, ← f.required "metadata" Metadata.ofDocument?,
      ← f.withDefault "properties" [] Property.listOf?)
  match parts with
  | none => .error .malformed
  | some (id, metadata, roots) =>
    ((Tree.ofProperties roots).mapError .violation).map fun tree => ⟨id, metadata, tree⟩

end Project
end CredentialSchema
