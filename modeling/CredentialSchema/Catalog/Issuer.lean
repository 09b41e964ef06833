import CredentialSchema.Catalog.Entry
import CredentialSchema.Identifier

/-!
Issuers: entities in the catalogue that may issue credentials. A status that is not known here
is kept as unknown; only an issuer that is active, or of which no status is told, is offered.
-/
namespace CredentialSchema

inductive EntityStatus
  | active
  | inactive
  | suspended
  /-- Any status not known here. -/
  | unknown
deriving DecidableEq, Repr

namespace EntityStatus

def text : EntityStatus → String
  | .active => "ACTIVE"
  | .inactive => "INACTIVE"
  | .suspended => "SUSPENDED"
  | .unknown => "UNKNOWN"

def ofText (s : String) : EntityStatus :=
  ([active, inactive, suspended].find? fun e => e.text == s).getD unknown

def ofDocument? : Document → Option EntityStatus := Document.variant? fun s => some (ofText s)

end EntityStatus

structure Issuer where
  id : Uuid
  name : String
  decentralizedIdentifier : Option String := none
  status : Option EntityStatus := none
  tags : List String := []
deriving DecidableEq, Repr

namespace Issuer

def ofDocument? (d : Document) : Option Issuer := do
  let f ← d.fields? ["id", "name", "decentralizedIdentifier", "status", "tags"]
  return {
    id := ← f.required "id" fun d => d.string?.bind Uuid.parse?
    name := ← f.required "name" Document.string?
    decentralizedIdentifier := ← f.optional "decentralizedIdentifier" Document.string?
    status := ← f.optional "status" EntityStatus.ofDocument?
    tags := ← f.withDefault "tags" [] (Document.list? Document.string?) }

def toJson (i : Issuer) : Json.Value :=
  .object [
    ("id", .string i.id.text), ("name", .string i.name),
    ("decentralizedIdentifier", orNull i.decentralizedIdentifier .string),
    ("status", orNull i.status fun s => .string s.text),
    ("tags", .array (i.tags.map .string))]

def isOffered (i : Issuer) : Bool := i.status.all (· == .active)

end Issuer
end CredentialSchema
