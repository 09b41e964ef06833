import CredentialSchema.Property.Basic

/-!
The stored form of properties. Empty lists and absent fields are left out when writing and
filled in when reading; reading does not judge whether the children are legal.
-/
namespace CredentialSchema

def Uuid.toJson (u : Uuid) : Json.Value := .string u.text

def Uuid.ofDocument? (d : Document) : Option Uuid := d.string?.bind Uuid.parse?

def PropertyId.toJson (id : PropertyId) : Json.Value := id.uuid.toJson

def PropertyId.ofDocument? (d : Document) : Option PropertyId := (Uuid.ofDocument? d).map .mk

def Kind.ofDocument? : Document → Option Kind := Document.variant? Kind.ofText?

namespace Declaration

def fieldNames : List String :=
  ["id", "name", "displayName", "description", "type", "required", "properties", "items",
    "constraints", "sourceVocabPropertyId"]

def ofFields? (f : Fields) : Option Declaration := do
  return {
    id := ← f.required "id" PropertyId.ofDocument?
    name := ← f.withDefault "name" "" Document.string?
    displayName := ← f.optional "displayName" Document.string?
    description := ← f.optional "description" Document.string?
    kind := ← f.withDefault "type" .string Kind.ofDocument?
    required := ← f.withDefault "required" false Document.bool?
    constraints := ← f.optional "constraints" Constraints.ofDocument?
    source := ← f.optional "sourceVocabPropertyId" Document.string? }

def members (d : Declaration) : List (String × Json.Value) :=
  [("id", d.id.toJson), ("name", .string d.name)] ++
    optionalMember "displayName" d.displayName .string ++
    optionalMember "description" d.description .string ++
    [("type", .string d.kind.text), ("required", .bool d.required)]

end Declaration

namespace Property

mutual
def toJson : Property → Json.Value
  | ⟨d, ms, e⟩ => .object (d.members ++
      (if ms.isEmpty then [] else [("properties", .array (listToJson ms))]) ++
      elementMember e ++
      optionalMember "constraints" d.constraints Constraints.toJson ++
      optionalMember "sourceVocabPropertyId" d.source .string)

def listToJson : List Property → List Json.Value
  | [] => []
  | p :: ps => toJson p :: listToJson ps

def elementMember : Option Property → List (String × Json.Value)
  | none => []
  | some p => [("items", toJson p)]
end

mutual
def toDocument : Property → Document
  | ⟨d, ms, e⟩ => .mapping (Document.ofMembers d.members ++
      (if ms.isEmpty then [] else [(.text "properties", .sequence (listToDocument ms))]) ++
      elementDocument e ++
      (d.constraints.map fun c => (.text "constraints", c.toDocument)).toList ++
      Document.ofMembers (optionalMember "sourceVocabPropertyId" d.source .string))

def listToDocument : List Property → List Document
  | [] => []
  | p :: ps => toDocument p :: listToDocument ps

def elementDocument : Option Property → List (Document × Document)
  | none => []
  | some p => [(.text "items", toDocument p)]
end

mutual
def ofDocument? : Document → Option Property
  | .mapping ms => do
    let f ← (Document.mapping ms).fields? Declaration.fieldNames
    return ⟨← Declaration.ofFields? f, ← membersIn? ms, ← elementIn? ms⟩
  | .sequence ds => do
    let f ← (Document.sequence ds).fields? Declaration.fieldNames
    return ⟨← Declaration.ofFields? f, ← membersAt? 6 ds, ← elementAt? 7 ds⟩
  | _ => none

def ofList? : List Document → Option (List Property)
  | [] => some []
  | d :: ds => do return (← ofDocument? d) :: (← ofList? ds)

def listOf? : Document → Option (List Property)
  | .sequence ds => ofList? ds
  | .plain s => if s.isEmpty then some [] else none
  | _ => none

def membersIn? : List (Document × Document) → Option (List Property)
  | [] => some []
  | (k, d) :: ms => if k.name? = some "properties" then listOf? d else membersIn? ms

def elementIn? : List (Document × Document) → Option (Option Property)
  | [] => some none
  | (k, d) :: ms =>
    if k.name? = some "items" then if d.isAbsent then some none else (ofDocument? d).map some
    else elementIn? ms

def membersAt? : (place : Nat) → List Document → Option (List Property)
  | _, [] => some []
  | 0, d :: _ => listOf? d
  | n + 1, _ :: ds => membersAt? n ds

def elementAt? : (place : Nat) → List Document → Option (Option Property)
  | _, [] => some none
  | 0, d :: _ => if d.isAbsent then some none else (ofDocument? d).map some
  | n + 1, _ :: ds => elementAt? n ds
end

end Property
end CredentialSchema
