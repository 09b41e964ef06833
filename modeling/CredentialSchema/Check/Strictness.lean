import CredentialSchema.Json.Writer

/-!
The strictness audit: every object level of a schema, compiled here or edited by hand, must
carry the same answer to undeclared attributes. A finding points at a level where the keyword
is absent or says something else.
-/
namespace CredentialSchema.Strictness

open Json (Value)

/-- An object level that does not say what is expected. -/
structure Finding where
  /-- A JSON pointer to the keyword. -/
  pointer : String
  /-- The value found, or that there is none. -/
  current : String
  expected : Bool
deriving DecidableEq, Repr

def Finding.text (f : Finding) : String :=
  "  " ++ f.pointer ++ ": " ++ f.current ++ " (expected " ++ toString f.expected ++ ")"

def escapeChar (c : Char) : List Char :=
  match c with
  | '~' => ['~', '0']
  | '/' => ['~', '1']
  | c => [c]

def escapeSegment (s : String) : String := .ofList (s.toList.flatMap escapeChar)

/-- Whether a schema is an object level: it says so or has members. -/
def isObjectLevel (schema : Value) : Bool :=
  schema.get? "type" == some (.string "object") || (schema.get? "properties").isSome

def levelFindings (path : String) (expected : Bool) (schema : Value) : List Finding :=
  let current := schema.get? "additionalProperties"
  if isObjectLevel schema && current != some (.bool expected) then
    [⟨path ++ "/additionalProperties",
      (current.map Value.compact).getD "(absent, defaults to true)", expected⟩]
  else []

mutual
def auditAt (path : String) (expected : Bool) : Value → List Finding
  | .object ms =>
    levelFindings path expected (.object ms) ++ auditProperties path expected ms ++
      auditItems path expected ms
  | _ => []

/-- The findings below the members of a schema, which the first `properties` keyword lists. -/
def auditProperties (path : String) (expected : Bool) : List (String × Value) → List Finding
  | [] => []
  | (k, v) :: ms =>
    if k = "properties" then
      match v with
      | .object inner => auditEach path expected inner
      | _ => []
    else auditProperties path expected ms

def auditEach (path : String) (expected : Bool) : List (String × Value) → List Finding
  | [] => []
  | (k, v) :: ms =>
    auditAt (path ++ "/properties/" ++ escapeSegment k) expected v ++ auditEach path expected ms

def auditItems (path : String) (expected : Bool) : List (String × Value) → List Finding
  | [] => []
  | (k, v) :: ms =>
    if k = "items" then auditAt (path ++ "/items") expected v else auditItems path expected ms
end

/-- The object levels of a schema that do not carry the expected answer. -/
def audit (schema : Value) (expected : Bool) : List Finding := auditAt "" expected schema

end CredentialSchema.Strictness
