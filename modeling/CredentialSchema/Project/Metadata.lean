import CredentialSchema.Property.Constraints

/-!
Metadata of a project: its title and description, which artifact it publishes, the parts of
its context URL, and whether its schemas admit undeclared attributes.
-/
namespace CredentialSchema

inductive Mode
  /-- A flat table of linked-data terms. -/
  | context
  /-- A nested JSON Schema. -/
  | schema
deriving DecidableEq, Repr, Inhabited

namespace Mode

def text : Mode → String
  | .context => "jsonld-context"
  | .schema => "json-schema"

def ofText? (s : String) : Option Mode := [context, schema].find? fun m => m.text == s

def ofDocument? : Document → Option Mode := Document.variant? ofText?

def unknownMessage (s : String) : String :=
  "unknown schema mode '" ++ s ++ "' (expected 'json-schema' or 'jsonld-context')"

@[simp] theorem ofText?_text (m : Mode) : ofText? m.text = some m := by cases m <;> decide

end Mode

structure Metadata where
  title : String := ""
  description : Option String := none
  mode : Mode := .schema
  category : Option String := none
  /-- The last part of the context URL, if it is not derived from the title. -/
  credentialName : Option String := none
  /-- Whether undeclared attributes are admitted at every object level. -/
  additionalProperties : Bool := true
deriving DecidableEq, Repr, Inhabited

namespace Metadata

def toJson (m : Metadata) : Json.Value :=
  .object (
    [("title", .string m.title)] ++
    optionalMember "description" m.description .string ++
    [("mode", .string m.mode.text)] ++
    optionalMember "category" m.category .string ++
    optionalMember "credentialName" m.credentialName .string ++
    [("additionalProperties", .bool m.additionalProperties)])

def fieldNames : List String :=
  ["title", "description", "mode", "category", "credentialName", "additionalProperties"]

def ofDocument? (d : Document) : Option Metadata := do
  let f ← d.fields? fieldNames
  return {
    title := ← f.withDefault "title" "" Document.string?
    description := ← f.optional "description" Document.string?
    mode := ← f.withDefault "mode" .schema Mode.ofDocument?
    category := ← f.optional "category" Document.string?
    credentialName := ← f.optional "credentialName" Document.string?
    additionalProperties := ← f.withDefault "additionalProperties" true Document.bool? }

end Metadata
end CredentialSchema
