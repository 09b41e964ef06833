import CredentialSchema.Time.Timestamp
import CredentialSchema.Vocabulary.Candidate

/-!
Catalogue entries: properties as the catalogue service lists them. Of an entry the import
takes what a candidate holds and drops how it is classified and when it was changed.
-/
namespace CredentialSchema

structure CatalogEntry where
  candidate : Candidate
  classification : Option String := none
  updatedAt : Option Timestamp := none
deriving DecidableEq, Repr

def orNull (o : Option α) (value : α → Json.Value) : Json.Value := (o.map value).getD .null

namespace CatalogEntry

def fieldNames : List String := Candidate.fieldNames ++ ["classification", "updatedAt"]

def ofDocument? (d : Document) : Option CatalogEntry := do
  let f ← d.fields? fieldNames
  return {
    candidate := {
      id := ← f.required "id" Document.string?
      name := ← f.required "name" Document.string?
      displayName := ← f.optional "displayName" Document.string?
      description := ← f.optional "description" Document.string?
      valueType := ← f.required "valueType" Document.string?
      constraints := ← f.optional "constraints" Constraints.ofDocument? }
    classification := ← f.optional "classification" Document.string?
    updatedAt := ← f.optional "updatedAt" Timestamp.ofDocument? }

def toJson (e : CatalogEntry) : Json.Value :=
  .object [
    ("id", .string e.candidate.id), ("name", .string e.candidate.name),
    ("displayName", orNull e.candidate.displayName .string),
    ("description", orNull e.candidate.description .string),
    ("valueType", .string e.candidate.valueType),
    ("constraints", orNull e.candidate.constraints Constraints.toJson),
    ("classification", orNull e.classification .string),
    ("updatedAt", orNull e.updatedAt fun t => .string t.text)]

end CatalogEntry
end CredentialSchema
