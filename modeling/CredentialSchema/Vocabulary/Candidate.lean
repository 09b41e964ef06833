import CredentialSchema.Property.Constraints

/-!
Candidates: catalogued properties offered for import.
-/
namespace CredentialSchema

structure Candidate where
  id : String
  name : String
  displayName : Option String := none
  description : Option String := none
  valueType : String
  constraints : Option Constraints := none
deriving DecidableEq, Repr, Inhabited

namespace Candidate

def toJson (c : Candidate) : Json.Value :=
  .object (
    [("id", .string c.id), ("name", .string c.name)] ++
    optionalMember "displayName" c.displayName .string ++
    optionalMember "description" c.description .string ++
    [("valueType", .string c.valueType)] ++
    optionalMember "constraints" c.constraints Constraints.toJson)

def fieldNames : List String :=
  ["id", "name", "displayName", "description", "valueType", "constraints"]

def ofDocument? (d : Document) : Option Candidate := do
  let f ← d.fields? fieldNames
  return {
    id := ← f.required "id" Document.string?
    name := ← f.required "name" Document.string?
    displayName := ← f.optional "displayName" Document.string?
    description := ← f.optional "description" Document.string?
    valueType := ← f.required "valueType" Document.string?
    constraints := ← f.optional "constraints" Constraints.ofDocument? }

/-- Loads the candidates of a file: a bare list, or a record with the list. Scalars have their
own types here, since the form is known only after reading. -/
def listOfFile? (d : Document) : Option (List Candidate) := do
  let d ← d.settle?
  match d.list? ofDocument? with
  | some cs => return cs
  | none => (← d.fields? ["candidates"]).required "candidates" (Document.list? ofDocument?)

end Candidate
end CredentialSchema
